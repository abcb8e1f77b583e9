/-
Reading a record by the names of its fields.

An object gives a record what stands under the names of its fields, in whatever order, and anything else
in it is passed over.  What is read depends only on the texts under each name: a field whose name does
not occur is left as it was, and a field whose name occurs once has the data of the text there.

* `Leaf.accepts` -- data are read from the texts of their value, if that opens nothing;
* `Fields.Awaits.readNamed` -- one part of an object, and what is awaited behind it;
* `Fields.accepts` -- a record is read from every object that has the awaited parts;
* `Shape.Accepts.ofText` -- data are read from a whole text, with blanks around it.
-/
import Lightshow.Proofs.Integers
import Lightshow.Proofs.Lights
import Lightshow.Proofs.Skipping

namespace Lightshow.Json

/-- A text from which a reader takes data: behind blanks and in front of whatever ends a number. -/
def Shape.Accepts (s : Shape) (t : List Char) (data : s.Data) : Prop :=
  ∀ g rest, Blank g → EndsNumber rest → Reads s.read (g ++ (t ++ rest)) data rest

/-! ### Leaves -/

section

variable {cs rest : List Char} {c : Char}

/-- A value that opens nothing is found as it is read. -/
theorem taken_readFound (limit : Nat) (list : c ≠ '[') (object : c ≠ '\x7b')
    (h : skipBlanks cs = c :: rest) :
    taken? (readFound cs) = (taken? (readValue limit cs)).map fun r => (r.1.found, r.2) := by
  rw [taken_readValue h, readFound.eq_def]
  split
  case h_1 h' => cases h.symm.trans h'
  case h_2 h' =>
    obtain ⟨rfl, rfl⟩ := List.cons.inj (h.symm.trans h')
    dsimp only
    by_cases n : c = 'n'
    · rw [if_pos n, if_pos n]
      cases readWord ['u', 'l', 'l'] rest <;> rfl
    rw [if_neg n, if_neg n]
    by_cases t : c = 't'
    · rw [if_pos t, if_pos t]
      cases readWord ['r', 'u', 'e'] rest <;> rfl
    rw [if_neg t, if_neg t]
    by_cases f : c = 'f'
    · rw [if_pos f, if_pos f]
      cases readWord ['a', 'l', 's', 'e'] rest <;> rfl
    rw [if_neg f, if_neg f]
    by_cases minus : c = '-'
    · rw [if_pos minus, if_pos minus]
      cases readDigits false rest <;> rfl
    rw [if_neg minus, if_neg minus]
    by_cases digit : c.isDigit = true
    · rw [if_pos digit, if_pos digit]
      cases readDigits true (c :: rest) <;> rfl
    rw [if_neg digit, if_neg digit]
    by_cases quote : c = '"'
    · rw [if_pos quote, if_pos quote]
      cases readString rest <;> rfl
    rw [if_neg quote, if_neg quote, if_neg list, if_neg object, if_neg (not_or.mpr ⟨list, object⟩)]
    rfl

theorem taken_readLeaf {α : Type} (of : Found → Except Issue α) (cs : List Char) :
    taken? (readLeaf of cs) =
      (taken? (readFound cs)).bind fun r => (of r.1).toOption.map fun a => (a, r.2) := by
  rw [readLeaf]
  rcases readFound cs with _ | ⟨f, after⟩
  · rfl
  · change taken? (placed after.1 (of f) >>= _) = (of f).toOption.map _
    cases of f <;> rfl

theorem Leaf.reads_leaf {t : List Char} {v : Value} (h : Leaf t v) {α : Type}
    {of : Found → Except Issue α} {a : α} (found : of v.found = .ok a) {g : List Char}
    (blank : Blank g) (ends : EndsNumber rest) : Reads (readLeaf of) (g ++ (t ++ rest)) a rest := by
  have spelling : Spelling (readValue 0) t v := h.spelling
  have read := spelling.reads g rest blank ends
  obtain ⟨c, u, rfl, solid, list, object, -⟩ := h.left_skipSimple ends
  rw [Reads, taken_readLeaf, taken_readFound 0 list object (skipBlanks_text blank solid), read,
    Option.map_some, Option.bind_some, found]
  rfl

theorem Leaf.head_eq_n_iff {t : List Char} {v : Value} (h : Leaf t v) :
    t.head? = some 'n' ↔ v = .null := by
  cases h with
  | null => exact iff_of_true rfl rfl
  | positive digit => exact iff_of_false (fun n => ne_of_digit digit rfl (Option.some.inj n)) nofun
  | _ => exact iff_of_false (by simp) nofun

theorem Value.found_ne_null {v : Value} (some_v : v ≠ .null) : v.found ≠ .null := by
  intro null
  cases v with
  | null => exact some_v rfl
  | _ => cases null

theorem Shape.ofFound_nullable {s : Shape} {f : Found} (some_f : f ≠ .null) :
    (Shape.nullable s).ofFound f = (s.ofFound f >>= fun data => .ok (some data)) := by
  cases f with
  | null => exact absurd rfl some_f
  | _ => rfl

theorem Leaf.accepts_nullable {t : List Char} {v : Value} (h : Leaf t v) {s : Shape}
    (accepts : ∀ {data : s.Data}, s.ofFound v.found = .ok data → s.Accepts t data)
    {data : (Shape.nullable s).Data} (found : (Shape.nullable s).ofFound v.found = .ok data) :
    (Shape.nullable s).Accepts t data := by
  intro g rest blank ends
  obtain ⟨c, u, rfl, solid, -⟩ := h.left_skipSimple ends
  have start : skipBlanks (g ++ (c :: u ++ rest)) = c :: (u ++ rest) := skipBlanks_text blank solid
  rw [Reads, Shape.read, start, List.head?_cons, show some c = (c :: u).head? from rfl]
  by_cases null : v = .null
  · rw [if_pos (h.head_eq_n_iff.mpr null)]
    exact h.reads_leaf found blank ends
  · rw [Shape.ofFound_nullable (Value.found_ne_null null)] at found
    obtain ⟨inner, given, same⟩ := bind_eq_ok_iff.mp found
    obtain rfl := Except.ok.inj same
    obtain ⟨le, read⟩ := reads_iff.mp (accepts given g rest blank ends)
    rw [if_neg (h.head_eq_n_iff.not.mpr null)]
    rw [read]
    rfl

theorem Leaf.accepts_choice {t : List Char} {v : Value} (h : Leaf t v) {names : List String}
    {data : (Shape.choice names).Data} (found : (Shape.choice names).ofFound v.found = .ok data) :
    (Shape.choice names).Accepts t data := by
  intro g rest blank ends
  cases h with
  | @text u ds quotes =>
    have leaf := (Leaf.text quotes).reads_leaf found blank ends
    have start : skipBlanks (g ++ ('"' :: (u ++ ['"']) ++ rest)) = '"' :: (u ++ ['"'] ++ rest) :=
      skipBlanks_text blank rfl
    rw [Reads, Shape.read.eq_def]
    dsimp only
    split
    case h_1 h' => cases start.symm.trans h'
    case h_2 h' =>
      obtain ⟨rfl, -⟩ := List.cons.inj (start.symm.trans h')
      rw [if_neg (by decide), if_pos rfl]
      exact leaf
  | _ => cases found

/-- **Data are read from the texts of a value that spells them.** -/
theorem Leaf.accepts {t : List Char} {v : Value} (h : Leaf t v) : ∀ {s : Shape} {data : s.Data},
    s.ofFound v.found = .ok data → s.Accepts t data
  | .natural _, _, found | .real, _, found | .boolean, _, found | .text, _, found => by
    intro g rest blank ends
    rw [Reads, Shape.read]
    exact h.reads_leaf found blank ends
  | .nullable _, _, found => h.accepts_nullable h.accepts found
  | .choice _, _, found => h.accepts_choice found
  | .record _ _, _, found => by cases found

end

/-! ### Fields -/

/-- The parts that stand under a name. -/
def under {ν : Type} (name : String) (parts : List (String × ν)) : List ν :=
  (parts.filter (·.1 = name)).map (·.2)

theorem under_cons {ν : Type} (name : String) (p : String × ν) (parts : List (String × ν)) :
    under name (p :: parts) = if p.1 = name then p.2 :: under name parts else under name parts := by
  rw [under, List.filter_cons]
  by_cases same : p.1 = name
  · rw [if_pos (decide_eq_true same), if_pos same]
    rfl
  · rw [if_neg (by simpa using same), if_neg same]
    rfl

/-- What is found of a field in the end, by the texts that are still to come under its name. -/
inductive Shape.Awaits (s : Shape) : (texts : List (List Char)) → (found last : Option s.Data) → Prop
  | settled (found : Option s.Data) : s.Awaits [] found found
  | one {u : List Char} {data : s.Data} : s.Accepts u data → s.Awaits [u] none (some data)

/-- The draft that will have been found when some more parts have been read. -/
def Fields.Awaits (parts : List (String × List Char)) :
    (fields : Fields) → (draft last : fields.Draft) → Prop
  | .nil, _, _ => True
  | .cons name _ s rest, (found, more), (last, later) =>
    s.Awaits (under name parts) found last ∧ rest.Awaits parts more later

/-- A text of a part: that of any value. -/
def Part (u text : List Char) : Prop := u = text ∧ ∃ limit v, Value.Text limit text v

namespace Fields

section

variable {known name : String} {presence : Presence} {s : Shape} {fields rest : Fields}
  {parts : List (String × List Char)}

theorem taken_readNamed_nil (draft : Fields.nil.Draft) (cs : List Char) :
    taken? (Fields.nil.readNamed name draft cs) =
      (left? (readColon cs)).bind fun value => (left? (skipValue value)).map fun r => (draft, r) := by
  change taken? (readColon cs >>= fun value => skipValue value.1 >>= fun last =>
    pure (draft, ⟨last.1, _⟩)) = _
  rcases readColon cs with _ | ⟨value, _⟩
  · rfl
  · change taken? (skipValue value >>= _) = (left? (skipValue value)).map _
    cases skipValue value <;> rfl

theorem taken_readNamed_same (more : rest.Draft) (cs : List Char) :
    taken? ((cons name presence s rest).readNamed name (none, more) cs) =
      (left? (readColon cs)).bind fun value =>
        (taken? (s.read value)).map fun r => ((some r.1, more), r.2) := by
  change taken? (if name = name then readColon cs >>= fun value => s.read value.1 >>= fun r =>
    pure ((some r.1, more), ⟨r.2.1, _⟩) else _) = _
  rw [if_pos rfl]
  rcases readColon cs with _ | ⟨value, _⟩
  · rfl
  · change taken? (s.read value >>= _) = (taken? (s.read value)).map _
    cases s.read value <;> rfl

theorem taken_readNamed_other (other : known ≠ name) (found : Option s.Data) (more : rest.Draft)
    (cs : List Char) :
    taken? ((cons known presence s rest).readNamed name (found, more) cs) =
      (taken? (rest.readNamed name more cs)).map fun r => ((found, r.1), r.2) := by
  change taken? (if known = name then _ else rest.readNamed name more cs >>= fun r =>
    pure ((found, r.1), r.2)) = _
  rw [if_neg other]
  cases rest.readNamed name more cs <;> rfl

theorem Awaits.of_nil : ∀ {fields : Fields} {draft last : fields.Draft},
    fields.Awaits [] draft last → draft = last
  | .nil, _, _, _ => rfl
  | .cons _ _ _ _, (_, _), (_, _), ⟨here, others⟩ => by
    cases here
    rw [others.of_nil]

/-- A part under another name changes nothing. -/
theorem Awaits.of_cons {p : String × List Char} : ∀ {fields : Fields} {draft last : fields.Draft},
    p.1 ∉ fields.names → fields.Awaits (p :: parts) draft last → fields.Awaits parts draft last
  | .nil, _, _, _, _ => trivial
  | .cons name _ _ _, (_, _), (_, _), other, ⟨here, others⟩ => by
    rw [names, List.mem_cons, not_or] at other
    rw [under_cons, if_neg other.1] at here
    exact ⟨here, others.of_cons other.2⟩

/-- One part is read, and the others are awaited behind it. -/
theorem Awaits.readNamed {u g h more : List Char} (text : ∃ limit v, Value.Text limit u v)
    (blank : Blank g) (blank' : Blank h) (ends : EndsNumber more) :
    ∀ {fields : Fields} {draft last : fields.Draft}, fields.names.Nodup →
      fields.Awaits ((name, u) :: parts) draft last →
        ∃ next, Reads (fields.readNamed name draft) (g ++ ':' :: (h ++ (u ++ more))) next more ∧
          fields.Awaits parts next last
  | .nil, draft, _, _, _ => by
    obtain ⟨limit, v, text⟩ := text
    refine ⟨draft, ?_, trivial⟩
    rw [Reads, taken_readNamed_nil, left_readColon_blank blank, Option.bind_some,
      text.left_skipValue blank' ends]
    rfl
  | .cons known presence s rest, (found, others), (last, later), distinct, ⟨here, awaits⟩ => by
    obtain ⟨apart, distinct⟩ := List.nodup_cons.mp distinct
    by_cases same : known = name
    · subst same
      rw [under_cons, if_pos rfl] at here
      generalize hlist : u :: under known parts = texts at here
      cases here with
      | settled => cases hlist
      | @one u data accepts =>
        obtain ⟨rfl, none⟩ := List.cons.inj hlist
        refine ⟨(some data, others), ?_, none ▸ .settled _, awaits.of_cons apart⟩
        rw [Reads, taken_readNamed_same, left_readColon_blank blank, Option.bind_some,
          accepts h more blank' ends]
        rfl
    · rw [under_cons, if_neg (Ne.symm same)] at here
      obtain ⟨next, read, awaits⟩ := awaits.readNamed text blank blank' ends distinct
      refine ⟨(found, next), ?_, here, awaits⟩
      rw [Reads, taken_readNamed_other same, read]
      rfl

end

end Fields

section

variable {fields : Fields}

theorem taken_readDraft {δ : Type} (take : String → δ → (cs : List Char) → Except Stop (δ × Rest cs))
    (draft : δ) (first : Bool) (cs : List Char) :
    taken? (readDraft take draft first cs) = (more? (nextField? first cs)).bind fun
      | none => some (draft, skipBlanks cs)
      | some name => (taken? (readString name)).bind fun k =>
        (taken? (take (String.ofList k.1) draft k.2)).bind fun r =>
          taken? (readDraft take r.1 false r.2) := by
  rw [readDraft.eq_def]
  rcases nextField? first cs with _ | _ | ⟨name, _⟩
  · rfl
  · rfl
  simp only [more?, Except.toOption, Option.map_some, Option.bind_some]
  rcases readString name with _ | ⟨key, colon, _⟩
  · rfl
  change _ = (taken? (take (String.ofList key) draft colon)).bind _
  dsimp only
  rcases take (String.ofList key) draft colon with _ | ⟨next, after, _⟩
  · rfl
  change _ = taken? (readDraft take next false after)
  dsimp only
  cases readDraft take next false after <;> rfl

/-- Behind its quote, a part is read into the draft. -/
theorem FieldText.readNamed {u more : List Char} {p : String × List Char} (h : FieldText Part u p)
    (ends : EndsNumber more) (distinct : fields.names.Nodup) {parts : List (String × List Char)}
    {draft last : fields.Draft} (awaits : fields.Awaits (p :: parts) draft last) :
    ∃ name next, u = '"' :: name ∧ fields.Awaits parts next last ∧
      ((taken? (readString (name ++ more))).bind fun k =>
        taken? (fields.readNamed (String.ofList k.1) draft k.2)) = some (next, more) := by
  obtain @⟨k, ds, g, l, v, a, quotes, blank, blank', rfl, text⟩ := h
  obtain ⟨next, read, awaits⟩ := awaits.readNamed text blank blank' ends distinct
  have whole : k ++ '"' :: (g ++ ':' :: (l ++ v)) ++ more =
      k ++ '"' :: (g ++ ':' :: (l ++ (v ++ more))) := by simp
  refine ⟨_, next, rfl, awaits, ?_⟩
  rw [whole, quotes.reads, Option.bind_some]
  exact read

/-- The parts of an object are read into a draft, up to what closes the object. -/
theorem Items.reads_draft (distinct : fields.names.Nodup) {first : Bool} {t : List Char}
    {parts : List (String × List Char)} (items : Items Blank (FieldText Part) first t parts)
    {draft last : fields.Draft} (awaits : fields.Awaits parts draft last) (r : List Char) :
    Reads (readDraft (fun name draft cs => fields.readNamed name draft cs) draft first)
      (t ++ '\x7d' :: r) last ('\x7d' :: r) := by
  induction items generalizing draft with
  | @nil first g blank =>
    obtain rfl := awaits.of_nil
    rw [Reads, taken_readDraft, more_nextField_close blank, Option.bind_some,
      skipBlanks_append blank, skipBlanks_cons rfl]
  | @first g u t f parts blank field others ih =>
    obtain ⟨name, next, rfl, awaits, read⟩ := field.readNamed (others.endsNumber_field r) distinct awaits
    rw [Reads, taken_readDraft, List.append_assoc, List.append_assoc, List.cons_append,
      more_nextField_first blank, Option.bind_some]
    dsimp only
    rw [← Option.bind_assoc, read, Option.bind_some]
    exact ih awaits
  | @next g h u t f parts blank blank' field others ih =>
    obtain ⟨name, next, rfl, awaits, read⟩ := field.readNamed (others.endsNumber_field r) distinct awaits
    rw [Reads, taken_readDraft, List.append_assoc, List.cons_append, List.append_assoc,
      List.append_assoc, List.cons_append, more_nextField_next blank blank', Option.bind_some]
    dsimp only
    rw [← Option.bind_assoc, read, Option.bind_some]
    exact ih awaits

theorem taken_read_object {name : String} {cs rest : List Char} (h : skipBlanks cs = '\x7b' :: rest) :
    taken? ((Shape.record name fields).read cs) =
      (taken? (readDraft (fun name draft cs => fields.readNamed name draft cs) fields.blank true
        rest)).bind fun r => (fields.finish r.1).toOption.map fun data => (data, r.2.drop 1) := by
  rw [Shape.read.eq_def]
  dsimp only
  split
  case h_1 h' => cases h.symm.trans h'
  case h_2 h' =>
    obtain ⟨rfl, rfl⟩ := List.cons.inj (h.symm.trans h')
    rw [if_neg (by decide), if_pos rfl]
    rcases readDraft (fun name draft cs => fields.readNamed name draft cs) fields.blank true rest with
      _ | ⟨draft, after, _⟩
    · rfl
    · change taken? (placed (afterClose '\x7d' after) (fields.finish draft) >>= _) =
        (fields.finish draft).toOption.map _
      cases fields.finish draft <;> rfl

/-- **A record is read from every object that has the parts which its fields await.** -/
theorem Fields.accepts {name : String} (distinct : fields.names.Nodup) {t : List Char}
    {parts : List (String × List Char)} (items : Items Blank (FieldText Part) true t parts)
    (last : fields.Draft) (awaits : fields.Awaits parts fields.blank last) {data : fields.Data}
    (finished : fields.finish last = .ok data) :
    (Shape.record name fields).Accepts ('\x7b' :: (t ++ ['\x7d'])) data := by
  intro g rest blank _
  have read := items.reads_draft distinct awaits rest
  rw [Reads, taken_read_object (skipBlanks_text blank rfl), List.append_assoc, List.singleton_append,
    read, Option.bind_some, finished]
  rfl

theorem Shape.Accepts.ofText {s : Shape} {t : List Char} {data : s.Data} (h : s.Accepts t data)
    {g k : List Char} (blank : Blank g) (blank' : Blank k) : s.ofText (g ++ (t ++ k)) = .ok data := by
  have ends : EndsNumber k := List.append_nil k ▸ EndsNumber.blank blank' fun _ => nofun
  obtain ⟨_, read⟩ := reads_iff.mp (h g k blank ends)
  have finished : readEnd k = .ok () := readEnd_eq_ok_iff.mpr blank'
  rw [Shape.ofText]
  dsimp only
  rw [read]
  dsimp only [bind, Except.bind]
  rw [finished]
  rfl

end

end Lightshow.Json
